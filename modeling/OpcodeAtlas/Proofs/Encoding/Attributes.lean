import OpcodeAtlas.Proofs.Encoding.Values

/-!
The attributes that an encoding adds. Its words can add eight attributes and take none away, so all
others are after reading what they were before (`mem_attributes_of_parse`).
-/

namespace OpcodeAtlas.Encoding

/-- The attributes that words of an encoding can add. -/
def wordAttributes : List Attribute :=
  [.modrm, .vsib, .sibMem, .mib, .bitBase, .lengthIgnored, .noLength0, .widthIgnored]

/-- The attribute that a token adds. -/
def Token.property? : Token → Option Attribute
  | .property p | .scaledIndex p => some p
  | _ => none

theorem everyWord_property? :
    EveryWord fun _ token => ∀ p ∈ token.property?, p ∈ wordAttributes where
  field := by simp [Token.property?]
  keyword := by decide
  modrm := by simp [Token.property?]
  named := by decide
  width := by simp [Token.property?]
  digit := by simp [Token.property?]
  byte := by simp [Token.property?]

theorem property?_of_parse {word : Text} {token : Token} (h : Token.parse word = .ok token)
    {p : Attribute} (adds : token.property? = some p) : p ∈ wordAttributes :=
  everyWord_property?.of_parse h p adds

namespace Reading

theorem attributes_take? {s t : Reading} {token : Token} (h : s.take? token = some t) :
    t.attributes = token.property?.elim s.attributes s.attributes.insert := by
  cases token with
  | noPrefix =>
    simp only [take?] at h
    split at h
    · cases h
      rfl
    · cases h
  | byte word =>
    simp only [take?] at h
    split at h
    · cases h
      rfl
    · cases h
      rfl
  | _ =>
    cases h
    rfl

theorem attributes_mark (s : Reading) (word : Text) :
    (s.mark word).attributes =
      if Token.isSlashed word then s.attributes.insert .modrm else s.attributes := by
  unfold mark
  split <;> rfl

theorem mem_attributes_readAll {a : Attribute} (other : a ∉ wordAttributes) (s : Reading)
    (words : List Text) : a ∈ (s.readAll words).2.attributes ↔ a ∈ s.attributes := by
  have kept : ∀ {r : Attributes} {p : Attribute}, p ∈ wordAttributes →
      (a ∈ r.insert p ↔ a ∈ r) := by
    intro r p added
    have apart : a ≠ p := fun same => other (same ▸ added)
    rw [OrderedSet.mem_insert, or_iff_left apart]
  refine readAll_preserves (P := fun r => a ∈ r.attributes ↔ a ∈ s.attributes) ?_ ?_ Iff.rfl words
  · intro r word before
    rw [attributes_mark]
    split
    · rw [kept (by decide), before]
    · exact before
  · intro r t word token parsed took before
    rw [attributes_take? took]
    cases adds : token.property? with
    | none => exact before
    | some p => exact (kept (property?_of_parse parsed adds)).trans before

end Reading

theorem mem_attributes_of_parse {raw : Text} {before after : Attributes} {e : Encoding}
    (h : (parse raw).outcome? before = .ok (e, after)) {a : Attribute}
    (other : a ∉ wordAttributes) : a ∈ after ↔ a ∈ before := by
  rw [Update.outcome?_eq_ok_iff, parse, Update.outcome_map] at h
  obtain ⟨_, rfl⟩ := Prod.mk.inj h
  exact Reading.mem_attributes_readAll other (.start before) raw.words

end OpcodeAtlas.Encoding
