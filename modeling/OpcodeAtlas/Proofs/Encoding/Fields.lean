import OpcodeAtlas.Proofs.Encoding.Values

/-!
The fields that words write. Each token has its own fields and leaves the others alone
(`Reading.values_take?`); no word writes the merged field.
-/

namespace OpcodeAtlas.Encoding

/-- The fields that a token can store a value in. -/
def Token.fields : Token → List Field
  | .noPrefix => [.mandatoryPrefix]
  | .byte _ => [.mandatoryPrefix, .opcode, .opcodeLast]
  | .value field _ => [field]
  | .scaledIndex _ => [.modrmRm]
  | .width _ => [.width, .widthOutside64Ignored]
  | .modrm _ => [.modrmReg, .modrmMod, .modrmRm]
  | .family _ | .property _ | .silent => []

theorem field_of_contributions {m : Modrm} {p : Field × Text} (h : p ∈ m.contributions) :
    p.1 ∈ (Token.modrm m).fields := by
  cases m with
  | byte value =>
    simp only [Modrm.contributions, List.mem_cons, List.not_mem_nil, or_false] at h
    rcases h with rfl | rfl | rfl <;> simp [Token.fields]
  | parts reg mod =>
    simp only [Modrm.contributions, List.mem_append, Option.mem_toList, Option.map_eq_some_iff] at h
    rcases h with ⟨n, _, rfl⟩ | ⟨m, _, rfl⟩ <;> simp [Token.fields]

theorem Reading.values_push_of_ne {s : Reading} {field f : Field} (other : field ≠ f)
    (value : Text) : (s.push field value).encoding.values f = s.encoding.values f := by
  rw [values_push, if_neg other, List.append_nil]

/-- A token leaves the fields alone that are not its own. -/
theorem Reading.values_take? {s t : Reading} {token : Token} {f : Field} (other : f ∉ token.fields)
    (h : s.take? token = some t) : t.encoding.values f = s.encoding.values f := by
  have apart : ∀ {g}, g ∈ token.fields → g ≠ f := fun own same => other (same ▸ own)
  cases token with
  | family g =>
    cases h
    rfl
  | noPrefix =>
    simp only [take?] at h
    split at h
    · cases h
      exact values_push_of_ne (apart (by decide)) _
    · cases h
  | byte word =>
    simp only [take?] at h
    split at h
    · cases h
      exact values_push_of_ne (apart (List.mem_cons_self)) _
    · cases h
      split
      · exact values_push_of_ne (apart (by simp [Token.fields])) _
      · exact values_push_of_ne (apart (by simp [Token.fields])) _
  | value g v =>
    cases h
    exact values_push_of_ne (apart (List.mem_singleton_self g)) v
  | property p =>
    cases h
    rfl
  | scaledIndex p =>
    cases h
    exact values_push_of_ne (s := s.withProperty p) (apart (List.mem_singleton_self _)) _
  | width v =>
    cases h
    split
    · exact values_push_of_ne (apart (by simp [Token.fields])) v
    · exact values_push_of_ne (apart (by simp [Token.fields])) v
  | modrm m =>
    cases h
    have none : (ofValues s.family m.contributions).values f = [] := by
      simp only [ofValues, List.map_eq_nil_iff, List.filter_eq_nil_iff]
      intro p member same
      exact apart (field_of_contributions member) (of_decide_eq_true same)
    rw [values_pushAll, none, List.append_nil]
  | silent =>
    cases h
    rfl

theorem Reading.values_readAll {f : Field}
    (spared : ∀ {word token}, Token.parse word = .ok token → f ∉ token.fields) (s : Reading)
    (words : List Text) : (s.readAll words).2.encoding.values f = s.encoding.values f := by
  have marked : ∀ (t : Reading) word, (t.mark word).encoding.values f = t.encoding.values f := by
    intro t word
    unfold mark
    split <;> rfl
  exact readAll_preserves (P := fun t => t.encoding.values f = s.encoding.values f)
    (fun word same => (marked _ word).trans same)
    (fun parsed took same => (values_take? (spared parsed) took).trans same) rfl words

/-- The fields that only bytes are stored in, and the merged field, which no word writes. -/
def reservedFields : List Field := [.opcode, .opcodeLast, .lpdf]

theorem everyWord_fields :
    EveryWord fun word token => (∀ f ∈ token.fields, f ∉ reservedFields) ∨ token = .byte word where
  field row member _ _ := by
    have known : ∀ row ∈ Token.fieldKeywords, row.1 ∉ reservedFields := by decide
    exact .inl (List.forall_mem_singleton.2 (known row member))
  keyword row member := by
    have known : ∀ row ∈ Token.keywords, ∀ f ∈ row.2.fields, f ∉ reservedFields := by decide
    exact .inl (known row member)
  modrm := by simp [Token.fields, reservedFields]
  named row member := by
    have known : ∀ row ∈ Token.namedValues, ∀ f ∈ row.2.2.fields, f ∉ reservedFields := by decide
    exact .inl (known row member)
  width := by simp [Token.fields, reservedFields]
  digit row member _ _ := by
    have known : ∀ row ∈ Token.digitKeys, row.2.1 ∉ reservedFields := by decide
    exact .inl (List.forall_mem_singleton.2 (known row member))
  byte _ _ := .inr rfl

theorem fields_of_parse {word : Text} {token : Token} (h : Token.parse word = .ok token) :
    (∀ f ∈ token.fields, f ∉ reservedFields) ∨ token = .byte word :=
  everyWord_fields.of_parse h

theorem lpdf_not_mem_fields {word : Text} {token : Token} (h : Token.parse word = .ok token) :
    .lpdf ∉ token.fields := by
  rcases fields_of_parse h with free | rfl
  · intro member
    exact free .lpdf member (by decide)
  · simp [Token.fields]

theorem values_lpdf_of_parsePlain {raw : Text} {attributes rest : Attributes} {e : Encoding}
    (h : (parsePlain raw).outcome attributes = (.ok e, rest)) : e.values .lpdf = [] := by
  obtain ⟨result, _⟩ := Prod.mk.inj h
  obtain ⟨_, _, rfl⟩ := Traversal.map_eq_ok_iff.1 result
  exact Reading.values_readAll lpdf_not_mem_fields (.start attributes) raw.words

end OpcodeAtlas.Encoding
