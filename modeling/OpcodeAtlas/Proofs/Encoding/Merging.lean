import OpcodeAtlas.Proofs.Encoding.Fields
import OpcodeAtlas.Proofs.Instruction.Build

/-!
What merging does to the encoding of an instruction. Words never write the merged field, so it shows
whether an encoding has been merged, and the merged number keeps the first value of each of the four
fields (`firstNumber?_eq_of_lpdf?_eq`).
-/

namespace OpcodeAtlas

namespace Encoding

open Dispatch (Axis legacyAxes vectorAxes childIndex?)

/-! ### Merged numbers -/

theorem firstNumber?_eq_of_lpdf?_eq {d e : Encoding} (fits : AllFit d) (fitsToo : AllFit e)
    {n : Nat} (hd : d.lpdf? = some n) (he : e.lpdf? = some n) {f : Field}
    (merged : f ∈ mergedFields) : d.firstNumber? f = e.firstNumber? f := by
  obtain ⟨l, _, p, _, x, _, y, _, hl, hp, hx, hy, packed⟩ := numbers_of_lpdf? fits hd
  obtain ⟨l', _, p', _, x', _, y', _, hl', hp', hx', hy', packed'⟩ := numbers_of_lpdf? fitsToo he
  obtain ⟨rfl, rfl, rfl, rfl⟩ : l = l' ∧ p = p' ∧ x = x' ∧ y = y' := by omega
  simp only [mergedFields, List.mem_cons, List.not_mem_nil, or_false] at merged
  rcases merged with rfl | rfl | rfl | rfl
  · rw [hl, hl']
  · rw [hp, hp']
  · rw [hx, hx']
  · rw [hy, hy']

theorem childIndex?_of_firstNumber? {e : Encoding} {f : Field} {n : Nat}
    (first : e.firstNumber? f = some n) :
    ∃ value rest, e.values f = value :: rest ∧ childIndex? value = some n := by
  obtain ⟨value, head, number⟩ := Option.bind_eq_some_iff.1 first
  obtain ⟨rest, shape⟩ := List.head?_eq_some_iff.1 head
  exact ⟨value, rest, shape, childIndex?_of_numberBelow? number⟩

end Encoding

/-! ### Instructions -/

namespace Instruction

/-- The encoding before its fields are merged. -/
def plainEncoding (i : Instruction) : Encoding :=
  match (Encoding.parsePlain i.rawEncoding).outcome? i.metadata.attributes with
  | .ok (e, _) => e
  | .error _ => i.encoding

def plain (i : Instruction) : Instruction := { i with encoding := i.plainEncoding }

def IsMerged (i : Instruction) : Prop := i.encoding.has .lpdf = true

instance (i : Instruction) : Decidable i.IsMerged := inferInstanceAs (Decidable (_ = true))

structure Unmerged (i : Instruction) : Prop where
  fits : Encoding.AllFit i.plainEncoding
  blank : i.plainEncoding.values .lpdf = []
  merge : i.encoding = i.plainEncoding.merge

theorem Unmerged.fits_encoding {i : Instruction} (unmerged : i.Unmerged) :
    Encoding.AllFit i.encoding :=
  unmerged.merge ▸ unmerged.fits.merge

theorem Unmerged.cases {i : Instruction} (unmerged : i.Unmerged) :
    (¬ i.IsMerged ∧ i.encoding = i.plainEncoding) ∨
      (i.IsMerged ∧ ∃ n, i.plainEncoding.lpdf? = some n ∧ ∀ f, i.encoding.values f =
        if f = .lpdf then [Text.hex n]
        else if f ∈ Encoding.mergedFields then [] else i.plainEncoding.values f) := by
  rw [IsMerged, Encoding.has, unmerged.merge]
  cases merged : i.plainEncoding.lpdf? with
  | none =>
    rw [Encoding.merge_of_none merged, unmerged.blank]
    exact .inl ⟨Bool.false_ne_true, rfl⟩
  | some n =>
    have values := Encoding.values_merge merged
    rw [unmerged.blank, List.nil_append] at values
    rw [values, if_pos rfl]
    exact .inr ⟨rfl, n, rfl, values⟩

theorem unmerged_of_build {templates : Templates} {p : Parts} {i : Instruction}
    (h : build templates p = .ok i) : i.Unmerged := by
  obtain ⟨after, steps⟩ := steps_of_build h
  have parsed := steps.encoding
  rw [Update.outcome?_eq_ok_iff, Encoding.parse, Update.outcome_map] at parsed
  obtain ⟨result, state⟩ := Prod.mk.inj parsed
  obtain ⟨plain, read, merge⟩ := Traversal.map_eq_ok_iff.1 result
  have before : (Encoding.parsePlain i.rawEncoding).outcome i.metadata.attributes =
      (.ok plain, after) := Prod.ext read state
  have same : i.plainEncoding = plain := by
    rw [plainEncoding, Update.outcome?_eq_ok_iff.2 before]
  refine ⟨?_, ?_, ?_⟩
  · rw [same]
    exact Encoding.allFit_of_parsePlain before
  · rw [same]
    exact Encoding.values_lpdf_of_parsePlain before
  · rw [same, merge]

end Instruction

end OpcodeAtlas
