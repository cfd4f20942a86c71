import OpcodeAtlas.Proofs.Metadata.Order

/-!
The attributes of metadata. `mem_attributes_of_read`: they are what the entries list, however many
entries there are and whatever stands between them.
-/

namespace OpcodeAtlas

/-- The attributes that an entry lists. -/
def MetaEntry.listedAttributes (e : MetaEntry) : List Attribute :=
  match e.key with
  | .attributes => (Vocabulary.parseList e.value).toOption.getD []
  | _ => []

theorem MetaEntry.listedAttributes_of_key_ne {e : MetaEntry} (other : e.key ≠ .attributes) :
    e.listedAttributes = [] := by
  unfold listedAttributes
  split
  · next same => exact absurd same other
  · rfl

namespace Metadata

variable {templates : Templates}

/-- The attributes that entries list, one entry after the other. -/
def listedAttributes (entries : List Text) : List Attribute :=
  entries.flatMap fun entry =>
    ((MetaEntry.parse entry).toOption.map MetaEntry.listedAttributes).getD []

theorem listedAttributes_cons {entry : Text} {rest : List Text} {e : MetaEntry}
    (read : MetaEntry.parse entry = .ok e) :
    listedAttributes (entry :: rest) = e.listedAttributes ++ listedAttributes rest := by
  rw [listedAttributes, List.flatMap_cons, read]
  rfl

theorem mem_attributes_of_record {m n : Metadata} {e : MetaEntry}
    (h : m.record templates e = .ok n) {a : Attribute} :
    a ∈ n.attributes ↔ a ∈ m.attributes ∨ a ∈ e.listedAttributes := by
  by_cases lists : e.key = .attributes
  · obtain ⟨key, value⟩ := e
    obtain rfl : key = .attributes := lists
    obtain ⟨s, added, made⟩ := Traversal.bind_eq_ok_iff.1 h
    cases made
    rw [OrderedSet.add, Update.state?_validated] at added
    obtain ⟨as, read, rfl⟩ := Traversal.map_eq_ok_iff.1 added
    have listed : MetaEntry.listedAttributes ⟨.attributes, value⟩ = as := by
      rw [MetaEntry.listedAttributes, read]
      rfl
    rw [listed]
    exact OrderedSet.mem_insertAll
  · have same : m.attributes = n.attributes := sameOn_of_record h (Ne.symm lists)
    rw [MetaEntry.listedAttributes_of_key_ne lists, same]
    simp

theorem mem_attributes_of_recordAll {m n : Metadata} {entries : List Text}
    (h : m.recordAll templates entries = .ok n) {a : Attribute} :
    a ∈ n.attributes ↔ a ∈ m.attributes ∨ a ∈ listedAttributes entries := by
  induction entries generalizing m with
  | nil =>
    cases h
    simp [listedAttributes]
  | cons entry rest ih =>
    obtain ⟨e, r, read, recorded, others⟩ := recordAll_cons.1 h
    rw [ih others, mem_attributes_of_record recorded, listedAttributes_cons read,
      List.mem_append, or_assoc]

theorem mem_attributes_of_read {mnemonic : Text} {entries : List Text} {m : Metadata}
    (h : read templates mnemonic entries = .ok m) {a : Attribute} :
    a ∈ m.attributes ↔ a ∈ listedAttributes entries := by
  have blank : a ∉ (initial mnemonic).attributes := List.not_mem_nil
  rw [mem_attributes_of_recordAll h, or_iff_right blank]

end Metadata

end OpcodeAtlas
