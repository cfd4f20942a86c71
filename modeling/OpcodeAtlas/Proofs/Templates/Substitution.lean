import Mathlib.Data.List.Basic
import OpcodeAtlas.CpuMode.Specifier
import OpcodeAtlas.Flag

/-!
Templates as text. A value with the texts of its templates written into it has the same meaning
without any templates (`parse_substitute`), so what a template text holds is never looked up.
-/

namespace OpcodeAtlas

/-! ### Pieces -/

namespace Text

theorem notMem_of_mem_splitOn {sep : Char} {t piece : Text} (member : piece ∈ t.splitOn sep) :
    sep ∉ piece := by
  induction t generalizing piece with
  | nil =>
    rw [List.splitOn_nil, List.mem_singleton] at member
    rw [member]
    exact List.not_mem_nil
  | cons c t ih =>
    obtain ⟨first, rest, pieces⟩ := List.exists_cons_of_ne_nil (List.splitOn_ne_nil sep t)
    rw [pieces, List.forall_mem_cons] at ih
    rw [List.splitOn_cons_eq_if_modifyHead, pieces] at member
    split at member
    · next cut =>
      rcases List.mem_cons.1 member with rfl | later
      · exact List.not_mem_nil
      · rcases List.mem_cons.1 later with rfl | inside
        · exact ih.1
        · exact ih.2 piece inside
    · next other =>
      rcases List.mem_cons.1 member with rfl | later
      · have apart : sep ≠ c := fun same => other (beq_iff_eq.2 same.symm)
        exact List.not_mem_cons_of_ne_of_not_mem apart ih.1
      · exact ih.2 piece later

/-- Joined texts are cut where they were joined and where they were cut before. -/
theorem splitOn_intercalate (sep : Char) {texts : List Text} (some : texts ≠ []) :
    ([sep].intercalate texts).splitOn sep = texts.flatMap (·.splitOn sep) := by
  induction texts with
  | nil => exact absurd rfl some
  | cons t rest ih =>
    cases rest with
    | nil => simp
    | cons next rest =>
      rw [List.intercalate_cons_of_ne_nil (List.cons_ne_nil next rest), List.append_assoc,
        List.singleton_append, List.splitOn_append_cons_self, ih (List.cons_ne_nil next rest)]
      rfl

end Text

/-! ### Substitution -/

namespace Templates

/-- The value with the text of a template in the place of every piece that is the template's name
between blanks. -/
def substitute (lookup : Text → Option Text) (value : Text) : Text :=
  ['|'].intercalate ((value.splitOn '|').map fun piece => (lookup piece.trim).getD piece)

theorem expand_empty (value : Text) :
    expand TextTable.empty.find? value = value.trimmedPieces '|' :=
  List.flatMap_singleton' _

theorem expand_congr {lookup other : Text → Option Text} {value : Text}
    (same : ∀ name ∈ value.trimmedPieces '|', other name = lookup name) :
    expand other value = expand lookup value := by
  unfold expand
  refine List.flatMap_congr fun name member => ?_
  rw [same name member]

theorem trimmedPieces_substitute (lookup : Text → Option Text) (value : Text) :
    (substitute lookup value).trimmedPieces '|' = expand lookup value := by
  have some : (value.splitOn '|').map (fun piece => (lookup piece.trim).getD piece) ≠ [] := by
    rw [ne_eq, List.map_eq_nil_iff]
    exact List.splitOn_ne_nil '|' value
  rw [substitute, Text.trimmedPieces, Text.splitOn_intercalate '|' some, List.map_flatMap,
    List.flatMap_map, expand, Text.trimmedPieces, List.flatMap_map]
  refine List.flatMap_congr fun piece member => ?_
  cases found : lookup piece.trim with
  | some text => rfl
  | none =>
    have whole : piece.splitOn '|' = [piece] :=
      List.splitOn_eq_singleton (Text.notMem_of_mem_splitOn member)
    rw [Option.getD_none, whole]
    rfl

theorem expand_substitute (lookup : Text → Option Text) (value : Text) :
    expand TextTable.empty.find? (substitute lookup value) = expand lookup value := by
  rw [expand_empty, trimmedPieces_substitute]

end Templates

/-! ### Readers -/

theorem CpuModes.parse_congr {value other : Text} {t u : Templates}
    (same : Templates.expand u.modes.find? other = Templates.expand t.modes.find? value) :
    CpuModes.parse other u = CpuModes.parse value t := by
  rw [CpuModes.parse, same, CpuModes.parse]

theorem FlagsAccess.add_congr {value other : Text} {t u : Templates}
    (same : Templates.expand u.flags.find? other = Templates.expand t.flags.find? value) :
    FlagsAccess.add other u = FlagsAccess.add value t := by
  rw [FlagsAccess.add, FlagsAccess.parse, same, FlagsAccess.add, FlagsAccess.parse]

namespace Templates

/-- Templates are substituted once: the value with their texts is read without templates as the
value is read with them, and only the names that the value itself holds are looked up. -/
theorem parse_substitute (value : Text) (t : Templates) :
    (CpuModes.parse (substitute t.modes.find? value) .empty = CpuModes.parse value t ∧
      ∀ flags, (FlagsAccess.add (substitute t.flags.find? value) .empty).outcome flags =
        (FlagsAccess.add value t).outcome flags) ∧
    ∀ u : Templates,
      ((∀ name ∈ value.trimmedPieces '|', u.modes.find? name = t.modes.find? name) →
        CpuModes.parse value u = CpuModes.parse value t) ∧
      ((∀ name ∈ value.trimmedPieces '|', u.flags.find? name = t.flags.find? name) →
        ∀ flags, (FlagsAccess.add value u).outcome flags =
          (FlagsAccess.add value t).outcome flags) := by
  refine ⟨⟨?_, fun flags => ?_⟩, fun u => ⟨fun same => ?_, fun same flags => ?_⟩⟩
  · exact CpuModes.parse_congr (expand_substitute _ value)
  · rw [FlagsAccess.add_congr (expand_substitute _ value)]
  · exact CpuModes.parse_congr (expand_congr same)
  · rw [FlagsAccess.add_congr (expand_congr same)]

/-- A template whose text is the name of another one and a clause. -/
def chained : Templates := empty.insertModes "ANY" "KERNEL | ring=r3"

/-- The name in the text of the template stays what it is, also where it has a meaning. -/
theorem parse_substitute_chained :
    CpuModes.parse "KERNEL | ring=r3|mode=long" .empty = CpuModes.parse "ANY|mode=long" chained ∧
      CpuModes.parse "ANY|mode=long" (chained.insertModes "KERNEL" "ring=r0") =
        .error (.malformed .modesClause "KERNEL") := by
  have written : substitute chained.modes.find? "ANY|mode=long" = "KERNEL | ring=r3|mode=long" := by
    decide
  have names : ∀ name ∈ Text.trimmedPieces '|' "ANY|mode=long",
      (chained.insertModes "KERNEL" "ring=r0").modes.find? name = chained.modes.find? name := by
    decide
  obtain ⟨⟨modes, _⟩, others⟩ := parse_substitute "ANY|mode=long" chained
  rw [written] at modes
  refine ⟨modes, ?_⟩
  rw [(others _).1 names]
  rfl

end Templates

end OpcodeAtlas
